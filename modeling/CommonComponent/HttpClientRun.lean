import CommonComponent.HttpClient

/-!
# The objects behind an HTTP request

In any order of requests, callbacks and timers, with calls from inside the callbacks: a
`CallbackArg` lives as long as libevent may call back with it and is freed once; its
client is the one of the peer and lives as long; and a transaction that `Get` or `Post`
has returned is ended at the latest with the callback of its request.

All of this needs the timer behind the callback: where that cannot be had, the
connection is freed in its own callback.  And a request that `evhttp_make_request` has
freed is freed again.
-/

namespace CommonComponent

open LabelledRun

/-! ## The host of a request -/

namespace EvhttpEnv

variable (env : EvhttpEnv)

def isHost (header : Bytes × Bytes) : Bool := sameNoCase header.1 (ascii "host")

theorem filter_addHeader (headers : List (Bytes × Bytes)) {key : Bytes} (value : Bytes)
    (hkey : sameNoCase key (ascii "host") = false) :
    (env.addHeader headers key value).filter isHost = headers.filter isHost := by
  unfold addHeader
  split_ifs
  · simp [isHost, hkey]
  · rfl

theorem filter_copyHeaders (headers : List (Bytes × Bytes)) :
    (env.copyHeaders headers).filter isHost = [] := by
  have hfold : ∀ copied : List (Bytes × Bytes),
      (headers.foldl (fun copied header =>
        if sameNoCase (cStr header.1) (ascii "host") then copied
        else env.addHeader copied (cStr header.1) (cStr header.2)) copied).filter isHost =
          copied.filter isHost := by
    induction headers with
    | nil => exact fun _ => rfl
    | cons header headers ih =>
        intro copied
        rw [List.foldl_cons, ih]
        split_ifs with hhost
        · rfl
        · exact env.filter_addHeader _ _ (by simpa using hhost)
  exact hfold []

theorem filter_removeHeader (headers : List (Bytes × Bytes)) {key : Bytes}
    (hkey : sameNoCase key (ascii "host") = false) :
    (removeHeader headers key).filter isHost = headers.filter isHost := by
  induction headers with
  | nil => rfl
  | cons header headers ih =>
      unfold removeHeader at ih ⊢
      rw [List.eraseP_cons]
      by_cases hsame : sameNoCase header.1 key = true
      · have hnot : isHost header = false := by
          simp only [sameNoCase, decide_eq_true_eq] at hsame
          simpa [isHost, sameNoCase, hsame] using hkey
        rw [hsame, cond_true, List.filter_cons_of_neg (by simp [hnot])]
      · rw [Bool.not_eq_true] at hsame
        rw [hsame, cond_false, List.filter_cons, List.filter_cons, ih]

def hostHeader (peer : Peer) : List (Bytes × Bytes) :=
  if env.headerOk (ascii "Host") peer.host then [(ascii "Host", peer.host)] else []

/-- Whatever headers the caller has, the host is that of the peer, and there is only
the one. -/
theorem filter_outputHeaders (peer : Peer) (params : HttpParams) :
    (env.outputHeaders peer params).filter isHost = env.hostHeader peer := by
  have hhost : (env.addHeader (env.copyHeaders params.headerList) (ascii "Host")
      peer.host).filter isHost = env.hostHeader peer := by
    have hkey : isHost (ascii "Host", peer.host) = true := by
      change sameNoCase (ascii "Host") (ascii "host") = true
      decide
    unfold addHeader hostHeader
    split_ifs
    · rw [List.filter_append, filter_copyHeaders, List.filter_cons_of_pos hkey]
      rfl
    · exact env.filter_copyHeaders _
  unfold outputHeaders
  dsimp only
  split_ifs
  · exact hhost
  · rw [filter_addHeader, filter_removeHeader, hhost]
    · decide
    · decide
  · rw [filter_addHeader, filter_removeHeader, filter_addHeader, hhost]
    · decide
    · decide
    · decide

end EvhttpEnv

/-! ## Transactions that stay -/

namespace TransCenter

theorem live_of_cancelTrans {tc : TransCenter} {transId id : TransID}
    (hlive : ((tc.cancelTrans transId).getTransCtx id).isSome = true) :
    id ≠ transId ∧ (tc.getTransCtx id).isSome = true := by
  rw [getTransCtx, cancelTrans_transHashMap] at hlive
  by_cases heq : id = transId
  · rw [if_pos heq] at hlive
    cases hlive
  · rw [if_neg heq] at hlive
    exact ⟨heq, hlive⟩

theorem live_of_removeTrans {tc : TransCenter} {transId id : TransID}
    (hlive : ((tc.removeTrans transId).getTransCtx id).isSome = true) :
    (tc.getTransCtx id).isSome = true := by
  rw [getTransCtx, removeTrans_transHashMap] at hlive
  by_cases heq : id = transId
  · rw [if_pos heq] at hlive
    cases hlive
  · rw [if_neg heq] at hlive
    exact hlive

/-- Only the id that is returned can be new in the table. -/
theorem live_of_recordTransCtx {tc : TransCenter} {now : ℤ} {ctx : TransCtx} {id : TransID}
    (hlive : ((tc.recordTransCtx now ctx).2.getTransCtx id).isSome = true)
    (hne : id ≠ (tc.recordTransCtx now ctx).1) : (tc.getTransCtx id).isSome = true := by
  unfold recordTransCtx at hlive hne
  dsimp only at hlive hne
  by_cases hvalid : tc.transIdSeq.alloc.1 = invalidTransID
  · rw [if_pos hvalid] at hlive
    exact hlive
  · rw [if_neg hvalid] at hlive hne
    cases hold : tc.transHashMap tc.transIdSeq.alloc.1 with
    | some ctx' =>
        simp only [hold] at hlive
        exact (live_of_cancelTrans hlive).2
    | none =>
        simp only [hold] at hlive hne
        by_cases hsink : ctx.sink = none
        · simp only [hsink, if_true] at hlive hne
          have hlive := (live_of_cancelTrans hlive).2
          rw [getTransCtx, indexTrans_transHashMap] at hlive
          simpa [getTransCtx, hne] using hlive
        · simp only [hsink, if_false] at hlive hne
          rw [getTransCtx, indexTrans_transHashMap] at hlive
          simpa [getTransCtx, hne] using hlive

end TransCenter

namespace TransState

theorem live_of_expireNext {tc : TransCenter} {log : List TransNote}
    {pending : List TransID} {id : TransID}
    (hlive : ((expireNext tc log pending).tc.getTransCtx id).isSome = true) :
    (tc.getTransCtx id).isSome = true := by
  induction pending generalizing tc with
  | nil => exact hlive
  | cons transId pending ih =>
      unfold expireNext at hlive
      split at hlive
      · exact hlive
      · unfold tellNext at hlive
        split at hlive
        · exact hlive
        · exact TransCenter.live_of_removeTrans (ih hlive)

theorem live_of_answer {s : TransState} {transId id : TransID} {ctx : TransCtx}
    {note : TransNote}
    (hlive : ((s.answer transId ctx note).tc.getTransCtx id).isSome = true) :
    (s.tc.getTransCtx id).isSome = true := by
  unfold answer at hlive
  split at hlive
  · exact hlive
  · exact (TransCenter.live_of_cancelTrans hlive).2

/-- Nothing but a record makes a transaction, and one that is being answered goes when
the sink returns. -/
theorem live_of_step {s s' : TransState} {a : TransAction} (hstep : s.step a = some s')
    (hrecord : ∀ now ctx, a ≠ .record now ctx) {id : TransID}
    (hlive : (s'.tc.getTransCtx id).isSome = true) :
    (s.tc.getTransCtx id).isSome = true ∧
      (s.control = .answering id → s'.control = .answering id) := by
  have hbusy : s.control = .idle → s.control = .answering id →
      s'.control = .answering id := by
    intro hidle hanswering
    rw [hidle] at hanswering
    cases hanswering
  cases step_steps hstep with
  | record now ctx => exact absurd rfl (hrecord now ctx)
  | cancel transId => exact ⟨(TransCenter.live_of_cancelTrans hlive).2, fun h => h⟩
  | addSink sink => exact ⟨hlive, fun h => h⟩
  | removeSink sink => exact ⟨hlive, fun h => h⟩
  | onRecvRsp _ _ hidle _ => exact ⟨live_of_answer hlive, hbusy hidle⟩
  | lateRsp _ _ hidle _ => exact ⟨(TransCenter.live_of_cancelTrans hlive).2, hbusy hidle⟩
  | httpReqDone _ hidle _ => exact ⟨live_of_answer hlive, hbusy hidle⟩
  | lateHttp _ hidle _ => exact ⟨hlive, hbusy hidle⟩
  | onTimer hidle _ _ =>
      have hlive := live_of_expireNext hlive
      exact ⟨hlive, hbusy hidle⟩
  | answered hcontrol =>
      obtain ⟨hne, hlive⟩ := TransCenter.live_of_cancelTrans hlive
      refine ⟨hlive, fun hanswering => ?_⟩
      rw [hcontrol] at hanswering
      exact absurd (Control.answering.inj hanswering).symm hne
  | told hcontrol =>
      refine ⟨?_, fun hanswering => ?_⟩
      · unfold tellNext at hlive
        split at hlive
        · exact hlive
        · exact TransCenter.live_of_removeTrans (live_of_expireNext hlive)
      · rw [hcontrol] at hanswering
        cases hanswering

/-- A transaction that its request has come back for is being answered or gone. -/
theorem answering_of_httpReqDone {s s' : TransState} {transId : TransID} {done : HttpDone}
    (hstep : s.step (.httpReqDone transId done) = some s')
    (hlive : (s'.tc.getTransCtx transId).isSome = true) :
    s'.control = .answering transId := by
  cases step_steps hstep with
  | httpReqDone =>
      unfold answer at hlive ⊢
      split at hlive
      · rfl
      · exact absurd rfl (TransCenter.live_of_cancelTrans hlive).1
  | lateHttp _ _ hnone =>
      rw [hnone] at hlive
      cases hlive

end TransState

/-! ## What holds along a run -/

/-- It goes to the peer, and says so. -/
def EvhttpReq.AddressedTo (env : EvhttpEnv) (peer : Peer) (req : EvhttpReq) : Prop :=
  req.addr = peer.addr ∧ req.port = peer.port ∧
    req.headers.filter EvhttpEnv.isHost = env.hostHeader peer

namespace HttpClients

variable {env : EvhttpEnv} {s s' : HttpClients} {ref client : ℕ} {peer : Peer}

/-- The request of the transaction is on its way, or its sink is being told. -/
def Awaited (s : HttpClients) (transId : TransID) : Prop :=
  (∃ ref arg, (s.requests ref).isSome = true ∧ s.args ref = some arg ∧
    arg.transId = transId) ∨
  s.doneArg.isSome = true ∧ s.trans.control = .answering transId

/-- No object is used or freed that is gone; a `CallbackArg` is there as long as
libevent may come back to it, with the client of its peer; each object is freed once;
requests go to the peer; and no transaction waits without a request. -/
structure HttpOk (env : EvhttpEnv) (s : HttpClients) : Prop where
  noFault : s.fault = false
  owned : ∀ ref arg, s.args ref = some arg →
    ref ∈ s.callbackArgSet arg.httpClient ∧
    ∃ peer, s.center.clients arg.httpClient = some peer ∧
      s.center.getClient peer = some arg.httpClient
  calledBack : ∀ ref, (s.args ref).isSome = true ↔
    (s.requests ref).isSome = true ∨ ref ∈ s.cleanups ∨ s.doneArg = some ref
  releasedOnce : ∀ ref < s.nextArg,
    s.released.count ref = if (s.args ref).isSome then 0 else 1
  destroyedOnce : ∀ ref < s.center.nextClient,
    s.center.destroyed.count ref = if (s.center.clients ref).isSome then 0 else 1
  addressed : ∀ ref req, s.requests ref = some req → ∃ arg peer, s.args ref = some arg ∧
    s.center.clients arg.httpClient = some peer ∧ req.AddressedTo env peer
  awaited : ∀ transId ∈ s.httpTrans, (s.trans.tc.getTransCtx transId).isSome = true →
    s.Awaited transId

/-- Where libevent has the `CallbackArg`. -/
inductive Placed (s : HttpClients) (ref : ℕ) : Prop
  | gone (harg : s.args ref = none) (hrequest : s.requests ref = none)
      (hcleanup : ref ∉ s.cleanups) (hdone : s.doneArg ≠ some ref)
  | request {arg : CallbackArg} (harg : s.args ref = some arg)
      (hevent : arg.cleanupEvent = .null) (hrequest : (s.requests ref).isSome = true)
      (hcleanup : ref ∉ s.cleanups) (hdone : s.doneArg ≠ some ref)
  | done {arg : CallbackArg} (harg : s.args ref = some arg)
      (hevent : arg.cleanupEvent = .null) (hrequest : s.requests ref = none)
      (hcleanup : ref ∉ s.cleanups) (hdone : s.doneArg = some ref)
  | cleanup {arg : CallbackArg} (harg : s.args ref = some arg)
      (hevent : arg.cleanupEvent = .live) (hrequest : s.requests ref = none)
      (hcleanup : ref ∈ s.cleanups) (hdone : s.doneArg ≠ some ref)

structure Inv (env : EvhttpEnv) (s : HttpClients) : Prop where
  noFault : s.fault = false
  registry : ∃ calls, ClientCenterRun.Inv ⟨s.center, calls⟩
  owned : ∀ ref arg, s.args ref = some arg →
    ref ∈ s.callbackArgSet arg.httpClient ∧
    (s.center.clients arg.httpClient).isSome = true
  members : ∀ client ref, ref ∈ s.callbackArgSet client →
    ∃ arg, s.args ref = some arg ∧ arg.httpClient = client
  placed : ∀ ref, s.Placed ref
  counted : ∀ ref < s.nextArg,
    s.released.count ref = if (s.args ref).isSome then 0 else 1
  unused : ∀ ref, s.nextArg ≤ ref → s.args ref = none ∧ s.released.count ref = 0
  addressed : ∀ ref req, s.requests ref = some req → ∃ arg peer, s.args ref = some arg ∧
    s.center.clients arg.httpClient = some peer ∧ req.AddressedTo env peer
  awaited : ∀ transId ∈ s.httpTrans, (s.trans.tc.getTransCtx transId).isSome = true →
    s.Awaited transId

theorem Inv.init : init.Inv env where
  noFault := rfl
  registry := ⟨[], .init⟩
  owned := fun _ _ harg => nomatch harg
  members := fun _ ref hmem => absurd hmem (Finset.notMem_empty ref)
  placed := fun ref => .gone rfl rfl (Finset.notMem_empty ref) (fun h => nomatch h)
  counted := fun _ hlt => absurd hlt (Nat.not_lt_zero _)
  unused := fun _ _ => ⟨rfl, rfl⟩
  addressed := fun _ _ hrequest => nomatch hrequest
  awaited := fun transId hmem => absurd hmem (Finset.notMem_empty transId)

theorem Inv.httpOk (h : s.Inv env) : s.HttpOk env where
  noFault := h.noFault
  owned := by
    intro ref arg harg
    obtain ⟨hmem, hclient⟩ := h.owned ref arg harg
    obtain ⟨peer, hpeer⟩ := Option.isSome_iff_exists.mp hclient
    obtain ⟨calls, hregistry⟩ := h.registry
    exact ⟨hmem, peer, hpeer, (hregistry.live_iff _ peer).mp hpeer⟩
  calledBack := by
    intro ref
    cases h.placed ref with
    | gone harg hrequest hcleanup hdone => simp [harg, hrequest, hcleanup, hdone]
    | request harg _ hrequest _ _ => simp [harg, hrequest]
    | done harg _ _ _ hdone => simp [harg, hdone]
    | cleanup harg _ _ hcleanup _ => simp [harg, hcleanup]
  releasedOnce := h.counted
  destroyedOnce := by
    intro ref hlt
    obtain ⟨calls, hregistry⟩ := h.registry
    cases hclient : s.center.clients ref with
    | none => simpa using hregistry.gone ref hlt hclient
    | some peer => simpa using hregistry.live ref peer hclient
  addressed := h.addressed
  awaited := h.awaited

theorem Placed.of_same (h : s.Placed ref) (hargs : s'.args ref = s.args ref)
    (hrequests : s'.requests ref = s.requests ref)
    (hcleanups : ref ∈ s'.cleanups ↔ ref ∈ s.cleanups)
    (hdone : s'.doneArg = some ref ↔ s.doneArg = some ref) : s'.Placed ref := by
  cases h with
  | gone harg hrequest hcleanup hdone' =>
      exact .gone (hargs.trans harg) (hrequests.trans hrequest) (mt hcleanups.mp hcleanup)
        (mt hdone.mp hdone')
  | request harg hevent hrequest hcleanup hdone' =>
      exact .request (hargs.trans harg) hevent (hrequests ▸ hrequest)
        (mt hcleanups.mp hcleanup) (mt hdone.mp hdone')
  | done harg hevent hrequest hcleanup hdone' =>
      exact .done (hargs.trans harg) hevent (hrequests.trans hrequest)
        (mt hcleanups.mp hcleanup) (hdone.mpr hdone')
  | cleanup harg hevent hrequest hcleanup hdone' =>
      exact .cleanup (hargs.trans harg) hevent (hrequests.trans hrequest)
        (hcleanups.mpr hcleanup) (mt hdone.mp hdone')

/-! ## The transactions -/

theorem Awaited.of_same {transId : TransID} (h : s.Awaited transId)
    (hrequests : s'.requests = s.requests) (hargs : s'.args = s.args)
    (hdone : s'.doneArg = s.doneArg)
    (hcontrol : s.trans.control = .answering transId →
      s'.trans.control = .answering transId) : s'.Awaited transId := by
  unfold Awaited
  rw [hrequests, hargs, hdone]
  exact h.imp_right fun hanswering => ⟨hanswering.1, hcontrol hanswering.2⟩

theorem Inv.trans (h : s.Inv env) {trans : TransState} {httpTrans : Finset TransID}
    (hawaited : ∀ transId ∈ httpTrans, (trans.tc.getTransCtx transId).isSome = true →
      transId ∈ s.httpTrans ∧ (s.trans.tc.getTransCtx transId).isSome = true ∧
        (s.trans.control = .answering transId → trans.control = .answering transId)) :
    Inv env { s with trans := trans, httpTrans := httpTrans } where
  noFault := h.noFault
  registry := h.registry
  owned := h.owned
  members := h.members
  placed := fun ref => (h.placed ref).of_same rfl rfl Iff.rfl Iff.rfl
  counted := h.counted
  unused := h.unused
  addressed := h.addressed
  awaited := by
    intro transId hmem hlive
    obtain ⟨hmem, hlive, hcontrol⟩ := hawaited transId hmem hlive
    exact (h.awaited transId hmem hlive).of_same rfl rfl rfl hcontrol

theorem Inv.recorded (h : s.Inv env) (now : ℤ) (ctx : TransCtx) :
    Inv env { s with
      trans := s.trans.recorded now ctx
      httpTrans := s.httpTrans.erase (s.trans.tc.recordTransCtx now ctx).1 } := by
  apply h.trans
  intro transId hmem hlive
  obtain ⟨hne, hmem⟩ := Finset.mem_erase.mp hmem
  exact ⟨hmem, TransCenter.live_of_recordTransCtx hlive hne, fun hcontrol => hcontrol⟩

theorem Inv.cancelled (h : s.Inv env) (transId : TransID) :
    Inv env { s with trans := s.trans.cancelled transId } := by
  apply h.trans
  intro transId' hmem hlive
  exact ⟨hmem, (TransCenter.live_of_cancelTrans hlive).2, fun hcontrol => hcontrol⟩

theorem Inv.transStep (h : s.Inv env) {a : TransAction} {trans : TransState}
    (hstep : s.trans.step a = some trans) :
    Inv env { s with trans := trans, httpTrans := s.httpTransAfter a } := by
  by_cases hrecord : ∃ now ctx, a = .record now ctx
  · obtain ⟨now, ctx, rfl⟩ := hrecord
    rw [← Option.some.inj hstep]
    exact h.recorded now ctx
  · have hother : ∀ now ctx, a ≠ .record now ctx := by
      intro now ctx heq
      exact hrecord ⟨now, ctx, heq⟩
    have hsame : s.httpTransAfter a = s.httpTrans := by
      cases a with
      | record now ctx => exact absurd rfl (hother now ctx)
      | _ => rfl
    rw [hsame]
    apply h.trans
    intro transId hmem hlive
    exact ⟨hmem, TransState.live_of_step hstep hother hlive⟩

theorem Inv.returned (h : s.Inv env) {transId : TransID} (hawaited : s.Awaited transId) :
    Inv env { s with httpTrans := insert transId s.httpTrans } where
  noFault := h.noFault
  registry := h.registry
  owned := h.owned
  members := h.members
  placed := fun ref => (h.placed ref).of_same rfl rfl Iff.rfl Iff.rfl
  counted := h.counted
  unused := h.unused
  addressed := h.addressed
  awaited := by
    intro transId' hmem hlive
    obtain rfl | hmem := Finset.mem_insert.mp hmem
    · exact hawaited
    · exact h.awaited transId' hmem hlive

/-! ## The clients -/

theorem Inv.withCenter (h : s.Inv env) {center : ClientCenter Peer}
    (hregistry : ∃ calls, ClientCenterRun.Inv ⟨center, calls⟩)
    (hkept : ∀ ref arg, s.args ref = some arg →
      center.clients arg.httpClient = s.center.clients arg.httpClient) :
    Inv env { s with center := center } where
  noFault := h.noFault
  registry := hregistry
  owned := by
    intro ref arg harg
    obtain ⟨hmem, hclient⟩ := h.owned ref arg harg
    exact ⟨hmem, (congrArg Option.isSome (hkept ref arg harg)).trans hclient⟩
  members := h.members
  placed := fun ref => (h.placed ref).of_same rfl rfl Iff.rfl Iff.rfl
  counted := h.counted
  unused := h.unused
  addressed := by
    intro ref req hrequest
    obtain ⟨arg, peer, harg, hclient, haddressed⟩ := h.addressed ref req hrequest
    exact ⟨arg, peer, harg, (hkept ref arg harg).trans hclient, haddressed⟩
  awaited := h.awaited

theorem Inv.createClient (h : s.Inv env) {calls : CreateClientEnv}
    (hnone : s.center.getClient peer = none) {center : ClientCenter Peer}
    {made : Option ℕ} (hcreate : s.center.createClient calls peer = some (center, made)) :
    Inv env { s with center := center } ∧
      ∀ client, made = some client → center.clients client = some peer := by
  obtain ⟨past, hregistry⟩ := h.registry
  have hfresh := (hregistry.unused s.center.nextClient le_rfl).1
  have hother : ∀ ref arg, s.args ref = some arg → arg.httpClient ≠ s.center.nextClient := by
    intro ref arg harg heq
    have hclient := (h.owned ref arg harg).2
    rw [heq, hfresh] at hclient
    cases hclient
  have hstep : ∃ call, ClientCenterRun.step ⟨s.center, past⟩ (.createClient calls peer) =
      some ⟨center, past ++ [call]⟩ := by
    cases made with
    | none => exact ⟨_, by rw [ClientCenterRun.step, hcreate]; rfl⟩
    | some ref => exact ⟨_, by rw [ClientCenterRun.step, hcreate]; rfl⟩
  obtain ⟨call, hstep⟩ := hstep
  have hregistry' := (hregistry.createClient (fun _ => hnone) hstep).1
  obtain ⟨-, hresult⟩ | ⟨-, -, hresult⟩ | ⟨-, hresult⟩ :=
    ClientCenterRun.createClient_cases s.center calls peer
  all_goals
    rw [hresult] at hcreate
    obtain ⟨rfl, rfl⟩ := Prod.mk.inj (Option.some.inj hcreate)
    refine ⟨h.withCenter ⟨_, hregistry'⟩ fun ref arg harg => ?_, fun client heq => ?_⟩
  · rfl
  · cases heq
  · exact Function.update_of_ne (hother ref arg harg) ..
  · rw [← Option.some.inj heq]
    exact Function.update_self ..
  · dsimp only [ClientCenter.makeClient]
    rw [Function.update_idem]
    exact Function.update_of_ne (hother ref arg harg) ..
  · cases heq

/-! ## The requests -/

section
variable {β : Type*} {f : ℕ → Option β} {x y : β} {sets : ℕ → Finset ℕ} {client' ref' : ℕ}

theorem update_some_eq_some : Function.update f ref (some x) ref' = some y ↔
    ref' = ref ∧ x = y ∨ ref' ≠ ref ∧ f ref' = some y := by
  by_cases heq : ref' = ref
  · subst heq
    simp
  · simp [heq]

theorem update_none_eq_some : Function.update f ref none ref' = some y ↔
    ref' ≠ ref ∧ f ref' = some y := by
  by_cases heq : ref' = ref
  · subst heq
    simp
  · simp [heq]

theorem mem_update_insert :
    ref' ∈ Function.update sets client (insert ref (sets client)) client' ↔
      client' = client ∧ ref' = ref ∨ ref' ∈ sets client' := by
  by_cases heq : client' = client
  · subst heq
    simp
  · simp [heq]

theorem mem_update_erase :
    ref' ∈ Function.update sets client ((sets client).erase ref) client' ↔
      ref' ∈ sets client' ∧ (client' = client → ref' ≠ ref) := by
  by_cases heq : client' = client
  · subst heq
    simp [and_comm]
  · simp [heq]

end

/-- An id that no `CallbackArg` has had. -/
theorem Inv.fresh (h : s.Inv env) : s.requests s.nextArg = none ∧
    s.nextArg ∉ s.cleanups ∧ s.doneArg ≠ some s.nextArg := by
  have hunused := (h.unused s.nextArg le_rfl).1
  cases h.placed s.nextArg with
  | gone _ hrequest hcleanup hdone => exact ⟨hrequest, hcleanup, hdone⟩
  | request harg => exact nomatch hunused.symm.trans harg
  | done harg => exact nomatch hunused.symm.trans harg
  | cleanup harg => exact nomatch hunused.symm.trans harg

theorem Inv.lt_nextArg (h : s.Inv env) {arg : CallbackArg}
    (harg : s.args ref = some arg) : ref < s.nextArg := by
  by_contra hle
  exact nomatch (h.unused ref (Nat.le_of_not_lt hle)).1.symm.trans harg

/-- A request has been handed to libevent. -/
theorem Inv.made (h : s.Inv env) (hclient : s.center.clients client = some peer)
    (transId : TransID) {req : EvhttpReq} (haddressed : req.AddressedTo env peer) :
    Inv env { s with
      args := Function.update s.args s.nextArg (some ⟨client, transId, .null⟩)
      nextArg := s.nextArg + 1
      requests := Function.update s.requests s.nextArg (some req)
      callbackArgSet := Function.update s.callbackArgSet client
        (insert s.nextArg (s.callbackArgSet client)) } := by
  obtain ⟨hrequest, hcleanup, hdone⟩ := h.fresh
  exact
    { noFault := h.noFault
      registry := h.registry
      owned := by
        intro ref arg harg
        obtain ⟨rfl, rfl⟩ | ⟨-, hold⟩ := update_some_eq_some.mp harg
        · exact ⟨mem_update_insert.mpr (.inl ⟨rfl, rfl⟩), by simp [hclient]⟩
        · obtain ⟨hmem, halive⟩ := h.owned ref arg hold
          exact ⟨mem_update_insert.mpr (.inr hmem), halive⟩
      members := by
        intro client' ref hmem
        obtain ⟨rfl, rfl⟩ | hmem := mem_update_insert.mp hmem
        · exact ⟨_, Function.update_self .., rfl⟩
        · obtain ⟨arg, harg, howner⟩ := h.members client' ref hmem
          have hne := (h.lt_nextArg harg).ne
          exact ⟨arg, (Function.update_of_ne hne ..).trans harg, howner⟩
      placed := by
        intro ref
        by_cases heq : ref = s.nextArg
        · subst heq
          exact .request (Function.update_self ..) rfl (by simp) hcleanup hdone
        · exact (h.placed ref).of_same (Function.update_of_ne heq ..)
            (Function.update_of_ne heq ..) Iff.rfl Iff.rfl
      counted := by
        intro ref hlt
        dsimp only at hlt ⊢
        by_cases heq : ref = s.nextArg
        · subst heq
          simp [(h.unused _ le_rfl).2]
        · simpa [Function.update_of_ne heq] using h.counted ref (by omega)
      unused := by
        intro ref hle
        dsimp only at hle ⊢
        rw [Function.update_of_ne (by omega)]
        exact h.unused ref (by omega)
      addressed := by
        intro ref req' hreq
        obtain ⟨rfl, rfl⟩ | ⟨hne, hold⟩ := update_some_eq_some.mp hreq
        · exact ⟨_, peer, Function.update_self .., hclient, haddressed⟩
        · obtain ⟨arg, peer', harg, hpeer⟩ := h.addressed ref req' hold
          exact ⟨arg, peer', (Function.update_of_ne hne ..).trans harg, hpeer⟩
      awaited := by
        intro transId' hmem hlive
        obtain ⟨ref, arg, hreq, harg, hid⟩ | hanswering := h.awaited transId' hmem hlive
        · have hne := (h.lt_nextArg harg).ne
          refine .inl ⟨ref, arg, ?_, (Function.update_of_ne hne ..).trans harg, hid⟩
          exact (congrArg Option.isSome (Function.update_of_ne hne ..)).trans hreq
        · exact .inr hanswering }

/-- One has not, and its `CallbackArg` is freed again. -/
theorem Inv.discarded (h : s.Inv env) {cleanups : Finset ℕ} {args : ℕ → Option CallbackArg}
    (hargs : args = s.args) (hcleanups : cleanups = s.cleanups) :
    Inv env { s with
      args := args
      nextArg := s.nextArg + 1
      released := s.released ++ [s.nextArg]
      cleanups := cleanups } := by
  subst hargs hcleanups
  have hunused := h.unused s.nextArg le_rfl
  exact
    { noFault := h.noFault
      registry := h.registry
      owned := h.owned
      members := h.members
      placed := by
        intro ref
        exact (h.placed ref).of_same rfl rfl Iff.rfl Iff.rfl
      counted := by
        intro ref hlt
        dsimp only at hlt ⊢
        rw [List.count_append, List.count_singleton]
        by_cases heq : ref = s.nextArg
        · subst heq
          simp [hunused.1, hunused.2]
        · rw [h.counted ref (by omega)]
          simp [Ne.symm heq]
      unused := by
        intro ref hle
        dsimp only at hle ⊢
        obtain ⟨harg, hcount⟩ := h.unused ref (by omega)
        have hne : s.nextArg ≠ ref := by omega
        rw [List.count_append, List.count_singleton, hcount]
        simp [harg, hne]
      addressed := h.addressed
      awaited := h.awaited }

theorem Inv.notMade (h : s.Inv env) (hclient : s.center.clients client = some peer)
    {transId : TransID} {sent : Bool}
    (hdo : (false, HttpClients.release { s with
      args := Function.update s.args s.nextArg (some ⟨client, transId, .null⟩)
      nextArg := s.nextArg + 1 } s.nextArg) = (sent, s')) :
    s'.Inv env ∧ (sent = true → s'.Awaited transId) := by
  obtain ⟨rfl, hresult⟩ := Prod.mk.inj hdo
  refine ⟨?_, fun hsent => nomatch hsent⟩
  obtain ⟨-, hcleanup, hdone⟩ := h.fresh
  have hargs : Function.update (Function.update s.args s.nextArg
      (some ⟨client, transId, .null⟩)) s.nextArg none = s.args := by
    rw [Function.update_idem]
    exact Function.update_eq_self_iff.mpr (h.unused _ le_rfl).1.symm
  have hcleanups := Finset.erase_eq_of_notMem hcleanup
  rw [← hresult]
  simp only [release, Function.update_self, hclient, hdone, reduceCtorEq, or_self, if_false]
  exact h.discarded hargs hcleanups

theorem addressedTo_evhttpReq (env : EvhttpEnv) (peer : Peer) (params : HttpParams)
    (uri : Bytes) : (env.evhttpReq peer params uri).AddressedTo env peer :=
  ⟨rfl, rfl, env.filter_outputHeaders peer params⟩

/-- `DoHTTPReq` comes to `evhttp_make_request`. -/
def ReqReady (params : HttpParams) (calls : HttpReqEnv) : Prop :=
  params.uri ≠ none ∧ calls.argCreated = true ∧ calls.ready params = true

theorem Inv.doHTTPReq (h : s.Inv env) (hclient : s.center.clients client = some peer)
    {transId : TransID} {params : HttpParams} {calls : HttpReqEnv} {sent : Bool}
    (hkept : ReqReady params calls → calls.makeRequest ≠ .freed)
    (hdo : s.doHTTPReq env client peer transId params calls = (sent, s')) :
    s'.Inv env ∧ (sent = true → s'.Awaited transId) := by
  unfold HttpClients.doHTTPReq at hdo
  split at hdo
  · obtain ⟨rfl, rfl⟩ := Prod.mk.inj hdo
    exact ⟨h, fun hsent => nomatch hsent⟩
  · next uri huri =>
      by_cases hcreated : calls.argCreated = true
      · simp only [hcreated, Bool.not_true, Bool.false_eq_true, if_false] at hdo
        split_ifs at hdo with hready
        · exact h.notMade hclient hdo
        · have hready : ReqReady params calls :=
            ⟨by simp [huri], hcreated, by simpa using hready⟩
          split at hdo
          · obtain ⟨rfl, rfl⟩ := Prod.mk.inj hdo
            refine ⟨h.made hclient transId (addressedTo_evhttpReq env peer params uri),
              fun _ => .inl ⟨s.nextArg, ⟨client, transId, .null⟩, ?_, ?_, rfl⟩⟩
            · exact (congrArg Option.isSome (Function.update_self s.nextArg _ _)).trans rfl
            · exact Function.update_self ..
          · exact h.notMade hclient hdo
          · next hfreed => exact absurd hfreed (hkept hready)
      · simp only [hcreated, Bool.not_false, if_true] at hdo
        obtain ⟨rfl, rfl⟩ := Prod.mk.inj hdo
        exact ⟨h, fun hsent => nomatch hsent⟩

theorem doHTTPReq_fault {transId : TransID} {params : HttpParams} {calls : HttpReqEnv}
    (hready : ReqReady params calls) (hfreed : calls.makeRequest = .freed) :
    ∃ s', s.doHTTPReq env client peer transId params calls = (false, s') ∧
      s'.fault = true := by
  obtain ⟨huri, hcreated, hready⟩ := hready
  obtain ⟨uri, huri⟩ := Option.ne_none_iff_exists'.mp huri
  simp [HttpClients.doHTTPReq, huri, hcreated, hready, hfreed, faulty]

/-- `Get` and `Post` come to `evhttp_make_request`. -/
def SendReady (s : HttpClients) (peer : Peer) (now : ℤ) (params : HttpParams)
    (asyncCtx : AsyncCtx) (calls : HttpReqEnv) : Prop :=
  (s.trans.tc.recordTransCtx now (asyncCtx.transCtx peer)).1 ≠ invalidTransID ∧
    ReqReady params calls

section
variable {now : ℤ} {params : HttpParams} {asyncCtx : AsyncCtx} {calls : HttpReqEnv}

theorem Inv.sendReq (h : s.Inv env) (hclient : s.center.clients client = some peer)
    (hkept : s.SendReady peer now params asyncCtx calls → calls.makeRequest ≠ .freed) :
    (s.sendReq env client peer now params asyncCtx calls).Inv env := by
  have hrecorded := h.recorded now (asyncCtx.transCtx peer)
  unfold HttpClients.sendReq
  dsimp only
  split_ifs with hinvalid
  · exact hrecorded
  · have hkept : ReqReady params calls → calls.makeRequest ≠ .freed :=
      fun hready => hkept ⟨hinvalid, hready⟩
    split
    · next hdo =>
        obtain ⟨hsent, hawaited⟩ := hrecorded.doHTTPReq hclient hkept hdo
        exact hsent.returned (hawaited rfl)
    · next hdo => exact (hrecorded.doHTTPReq hclient hkept hdo).1.cancelled _

theorem sendReq_fault (hready : s.SendReady peer now params asyncCtx calls)
    (hfreed : calls.makeRequest = .freed) :
    (s.sendReq env client peer now params asyncCtx calls).fault = true := by
  unfold HttpClients.sendReq
  dsimp only
  rw [if_neg hready.1]
  obtain ⟨s', hdo, hfault⟩ := doHTTPReq_fault hready.2 hfreed
  rw [hdo]
  exact hfault

/-- `HTTPGet` and `HTTPPost` come to `evhttp_make_request`. -/
def HandsOver (s : HttpClients) (peer : Peer) (now : ℤ) (params : HttpParams)
    (asyncCtx : AsyncCtx) (calls : HttpReqEnv) : Prop :=
  (s.center.getClient peer = none → calls.client.made = true ∧
      calls.client.initialized = true ∧ calls.client.activated = true) ∧
    s.SendReady peer now params asyncCtx calls

theorem made_of_createClient {cc center : ClientCenter Peer} {calls : CreateClientEnv}
    (hcreate : cc.createClient calls peer = some (center, some client)) :
    calls.made = true ∧ calls.initialized = true ∧ calls.activated = true := by
  unfold ClientCenter.createClient at hcreate
  dsimp only at hcreate
  split_ifs at hcreate with hmade hinserted
  · cases hcreate
  · simp only [Bool.and_eq_true] at hinserted
    exact ⟨by simpa using hmade, hinserted.1⟩
  · obtain ⟨cc', -, heq⟩ := Option.map_eq_some_iff.mp hcreate
    cases heq

theorem Inv.httpReq (h : s.Inv env)
    (hkept : s.HandsOver peer now params asyncCtx calls → calls.makeRequest ≠ .freed) :
    (s.httpReq env peer now params asyncCtx calls).Inv env := by
  unfold HttpClients.httpReq
  split
  · next client hclient =>
      obtain ⟨past, hregistry⟩ := h.registry
      refine h.sendReq ((hregistry.live_iff client peer).mpr hclient) fun hready => ?_
      exact hkept ⟨fun hnone => (nomatch hclient.symm.trans hnone), hready⟩
  · next hnone =>
      split
      · next hcreate =>
          obtain ⟨-, hresult⟩ | ⟨-, -, hresult⟩ | ⟨-, hresult⟩ :=
            ClientCenterRun.createClient_cases s.center calls.client peer
          all_goals
            rw [hresult] at hcreate
            cases hcreate
      · next hcreate => exact (h.createClient hnone hcreate).1
      · next hcreate =>
          obtain ⟨hcreated, hclient⟩ := h.createClient hnone hcreate
          refine hcreated.sendReq (hclient _ rfl) fun hready => ?_
          exact hkept ⟨fun _ => made_of_createClient hcreate, hready⟩

/-- `err_out` frees the request that `evhttp_make_request` has freed. -/
theorem httpReq_fault (hover : s.HandsOver peer now params asyncCtx calls)
    (hfreed : calls.makeRequest = .freed) :
    (s.httpReq env peer now params asyncCtx calls).fault = true := by
  obtain ⟨hcreate, hready⟩ := hover
  unfold HttpClients.httpReq
  cases hclient : s.center.getClient peer with
  | some client => exact sendReq_fault hready hfreed
  | none =>
      obtain ⟨hmade, hinitialized, hactivated⟩ := hcreate hclient
      have hnone : s.center.clientMap peer = none := hclient
      simp only [ClientCenter.createClient, hmade, hinitialized, hactivated, hnone,
        Bool.not_true, Bool.false_eq_true, if_false, Bool.and_self, Option.isNone_none,
        if_true]
      exact sendReq_fault hready hfreed

end

/-! ## The callbacks -/

/-- The request has come back, and its sink is told. -/
theorem Inv.reqDone (h : s.Inv env) (hrequest : (s.requests ref).isSome = true)
    (hdone : s.doneArg = none) {arg : CallbackArg} (harg : s.args ref = some arg)
    {done : HttpDone} {trans : TransState}
    (hstep : s.trans.step (.httpReqDone arg.transId done) = some trans) :
    Inv env { s with
      trans := trans
      requests := Function.update s.requests ref none
      doneArg := some ref } := by
  exact
    { noFault := h.noFault
      registry := h.registry
      owned := h.owned
      members := h.members
      placed := by
        intro ref'
        by_cases heq : ref' = ref
        · subst heq
          cases h.placed ref' with
          | gone _ hnone => exact nomatch hnone ▸ hrequest
          | request harg hevent _ hcleanup _ =>
              exact .done harg hevent (Function.update_self ..) hcleanup rfl
          | done _ _ hnone => exact nomatch hnone ▸ hrequest
          | cleanup _ _ hnone => exact nomatch hnone ▸ hrequest
        · refine (h.placed ref').of_same rfl (Function.update_of_ne heq ..) Iff.rfl ?_
          simp [hdone, Ne.symm heq]
      counted := h.counted
      unused := h.unused
      addressed := by
        intro ref' req hreq
        exact h.addressed ref' req (update_none_eq_some.mp hreq).2
      awaited := by
        intro transId hmem hlive
        have hlive' := (TransState.live_of_step hstep (fun _ _ => nofun) hlive).1
        obtain ⟨ref', arg', hreq, harg', hid⟩ | ⟨hbusy, -⟩ := h.awaited transId hmem hlive'
        · by_cases heq : ref' = ref
          · subst heq
            obtain rfl := Option.some.inj (harg.symm.trans harg')
            subst hid
            exact .inr ⟨rfl, TransState.answering_of_httpReqDone hstep hlive⟩
          · refine .inl ⟨ref', arg', ?_, harg', hid⟩
            simpa [Function.update_of_ne heq] using hreq
        · rw [hdone] at hbusy
          cases hbusy }

/-- The `CallbackArg` of the callback that the loop is in. -/
theorem Inv.doneArg (h : s.Inv env) (hdone : s.doneArg = some ref) :
    ∃ arg, s.args ref = some arg ∧ arg.cleanupEvent = .null ∧ s.requests ref = none ∧
      ref ∉ s.cleanups ∧ s.center.clients arg.httpClient ≠ none := by
  have halive : ∀ arg, s.args ref = some arg → s.center.clients arg.httpClient ≠ none :=
    fun arg harg => Option.isSome_iff_ne_none.mp (h.owned ref arg harg).2
  cases h.placed ref with
  | gone _ _ _ hnot => exact absurd hdone hnot
  | request _ _ _ _ hnot => exact absurd hdone hnot
  | done harg hevent hrequest hcleanup _ =>
      exact ⟨_, harg, hevent, hrequest, hcleanup, halive _ harg⟩
  | cleanup _ _ _ _ hnot => exact absurd hdone hnot

/-- The timer behind the callback has been set. -/
theorem Inv.scheduled (h : s.Inv env) (hdone : s.doneArg = some ref)
    (hidle : s.trans.control = .idle) :
    (s.scheduleCleanup ref true true).Inv env := by
  obtain ⟨arg, harg, hevent, hrequest, hcleanup, halive⟩ := h.doneArg hdone
  simp only [HttpClients.scheduleCleanup, harg, halive, if_false, Bool.not_true,
    Bool.false_eq_true]
  have hargs : ∀ ref' arg', Function.update s.args ref
      (some { arg with cleanupEvent := .live }) ref' = some arg' →
        ∃ old, s.args ref' = some old ∧ old.httpClient = arg'.httpClient := by
    intro ref' arg' harg'
    obtain ⟨rfl, rfl⟩ | ⟨-, hold⟩ := update_some_eq_some.mp harg'
    · exact ⟨arg, harg, rfl⟩
    · exact ⟨arg', hold, rfl⟩
  have hback : ∀ ref' old, s.args ref' = some old → ∃ arg', Function.update s.args ref
      (some { arg with cleanupEvent := .live }) ref' = some arg' ∧
        arg'.httpClient = old.httpClient ∧ arg'.transId = old.transId := by
    intro ref' old hold
    by_cases heq : ref' = ref
    · subst heq
      obtain rfl := Option.some.inj (harg.symm.trans hold)
      exact ⟨_, Function.update_self .., rfl, rfl⟩
    · exact ⟨old, (Function.update_of_ne heq ..).trans hold, rfl, rfl⟩
  exact
    { noFault := h.noFault
      registry := h.registry
      owned := by
        intro ref' arg' harg'
        obtain ⟨old, hold, howner⟩ := hargs ref' arg' harg'
        rw [← howner]
        exact h.owned ref' old hold
      members := by
        intro client ref' hmem
        obtain ⟨old, hold, howner⟩ := h.members client ref' hmem
        obtain ⟨arg', harg', howner', -⟩ := hback ref' old hold
        exact ⟨arg', harg', howner'.trans howner⟩
      placed := by
        intro ref'
        by_cases heq : ref' = ref
        · subst heq
          exact .cleanup (Function.update_self ..) rfl hrequest (Finset.mem_insert_self ..)
            nofun
        · refine (h.placed ref').of_same (Function.update_of_ne heq ..) rfl ?_ ?_
          · simp [heq]
          · simp [hdone, Ne.symm heq]
      counted := by
        intro ref' hlt
        by_cases heq : ref' = ref
        · subst heq
          simpa [harg] using h.counted ref' hlt
        · simpa [Function.update_of_ne heq] using h.counted ref' hlt
      unused := by
        intro ref' hle
        have hne : ref' ≠ ref := ((h.lt_nextArg harg).trans_le hle).ne'
        simpa [Function.update_of_ne hne] using h.unused ref' hle
      addressed := by
        intro ref' req hreq
        obtain ⟨old, peer, hold, hpeer, haddressed⟩ := h.addressed ref' req hreq
        obtain ⟨arg', harg', howner, -⟩ := hback ref' old hold
        exact ⟨arg', peer, harg', howner ▸ hpeer, haddressed⟩
      awaited := by
        intro transId hmem hlive
        obtain ⟨ref', old, hreq, hold, hid⟩ | ⟨-, hanswering⟩ :=
          h.awaited transId hmem hlive
        · obtain ⟨arg', harg', -, hid'⟩ := hback ref' old hold
          exact .inl ⟨ref', arg', hreq, harg', hid'.trans hid⟩
        · rw [hidle] at hanswering
          cases hanswering }

/-- Without it the connection goes in its own callback. -/
theorem Inv.scheduleCleanup_fault (h : s.Inv env) (hdone : s.doneArg = some ref)
    {eventNew eventAdd : Bool} (hfails : ¬(eventNew = true ∧ eventAdd = true)) :
    (s.scheduleCleanup ref eventNew eventAdd).fault = true := by
  obtain ⟨arg, harg, -, -, -, halive⟩ := h.doneArg hdone
  cases eventNew with
  | false =>
      simp [HttpClients.scheduleCleanup, release, eraseArg, faulty, harg, halive, hdone]
  | true =>
      cases eventAdd with
      | true => exact absurd ⟨rfl, rfl⟩ hfails
      | false =>
          simp [HttpClients.scheduleCleanup, release, eraseArg, faulty, harg, halive]

/-- The timer has freed the connection. -/
theorem Inv.freed (h : s.Inv env) (hdone : s.doneArg = none) {arg : CallbackArg}
    (harg : s.args ref = some arg) (hrequest : s.requests ref = none) :
    Inv env { s with
      callbackArgSet := Function.update s.callbackArgSet arg.httpClient
        ((s.callbackArgSet arg.httpClient).erase ref)
      args := Function.update s.args ref none
      released := s.released ++ [ref]
      cleanups := s.cleanups.erase ref } := by
  exact
    { noFault := h.noFault
      registry := h.registry
      owned := by
        intro ref' arg' harg'
        obtain ⟨hne, hold⟩ := update_none_eq_some.mp harg'
        obtain ⟨hmem, halive⟩ := h.owned ref' arg' hold
        exact ⟨mem_update_erase.mpr ⟨hmem, fun _ => hne⟩, halive⟩
      members := by
        intro client ref' hmem
        obtain ⟨hold, hother⟩ := mem_update_erase.mp hmem
        obtain ⟨arg', harg', howner⟩ := h.members client ref' hold
        have hne : ref' ≠ ref := by
          rintro rfl
          obtain rfl := Option.some.inj (harg.symm.trans harg')
          exact hother howner.symm rfl
        exact ⟨arg', (Function.update_of_ne hne ..).trans harg', howner⟩
      placed := by
        intro ref'
        by_cases heq : ref' = ref
        · subst heq
          refine .gone (Function.update_self ..) hrequest (Finset.notMem_erase _ _) ?_
          rw [hdone]
          exact nofun
        · refine (h.placed ref').of_same (Function.update_of_ne heq ..) rfl ?_ Iff.rfl
          simp [heq]
      counted := by
        intro ref' hlt'
        have hcounted := h.counted ref' hlt'
        dsimp only
        rw [List.count_append, List.count_singleton]
        by_cases heq : ref' = ref
        · subst heq
          simpa [harg] using hcounted
        · simpa [Function.update_of_ne heq, Ne.symm heq] using hcounted
      unused := by
        intro ref' hle
        have hne : ref' ≠ ref := ((h.lt_nextArg harg).trans_le hle).ne'
        obtain ⟨hnone, hcount⟩ := h.unused ref' hle
        dsimp only
        rw [List.count_append, List.count_singleton, hcount]
        simp [Function.update_of_ne hne, hnone, Ne.symm hne]
      addressed := by
        intro ref' req hreq
        obtain ⟨arg', peer, harg', hpeer, haddressed⟩ := h.addressed ref' req hreq
        have hne : ref' ≠ ref := by
          rintro rfl
          exact nomatch hrequest.symm.trans hreq
        exact ⟨arg', peer, (Function.update_of_ne hne ..).trans harg', hpeer, haddressed⟩
      awaited := by
        intro transId hmem hlive
        obtain ⟨ref', arg', hreq, harg', hid⟩ | hanswering := h.awaited transId hmem hlive
        · have hne : ref' ≠ ref := by
            rintro rfl
            rw [hrequest] at hreq
            cases hreq
          exact .inl ⟨ref', arg', hreq, (Function.update_of_ne hne ..).trans harg', hid⟩
        · exact .inr hanswering }

/-- A client without connections is destroyed, and its peer has none. -/
theorem Inv.removeIdle (h : s.Inv env) (halive : (s.center.clients client).isSome = true) :
    (s.removeIdle client).Inv env := by
  unfold HttpClients.removeIdle
  split_ifs with hempty
  · obtain ⟨peer, hpeer⟩ := Option.isSome_iff_exists.mp halive
    obtain ⟨past, hregistry⟩ := h.registry
    have hmap := (hregistry.live_iff client peer).mp hpeer
    have hremove : s.center.removeClient peer = some { s.center with
        clients := Function.update s.center.clients client none
        destroyed := s.center.destroyed ++ [client]
        clientMap := Function.update s.center.clientMap peer none } := by
      dsimp only at hmap
      simp [ClientCenter.removeClient, ClientCenter.safeDestroy, hmap, hpeer]
    have hregistry' : ClientCenterRun.Inv ⟨_, past ++ [.removed peer]⟩ :=
      hregistry.removeClient hremove fun peer' => by
        simp [ClientCenterRun.ownerAfter, eq_comm]
    rw [hpeer, Option.bind_some, hremove]
    refine h.withCenter ⟨_, hregistry'⟩ fun ref arg harg => ?_
    have hne : arg.httpClient ≠ client := by
      intro heq
      have hmem := (h.owned ref arg harg).1
      rw [heq, hempty] at hmem
      exact Finset.notMem_empty ref hmem
    exact Function.update_of_ne hne ..
  · exact h

theorem Inv.connCleanup (h : s.Inv env) (hcleanup : ref ∈ s.cleanups)
    (hdone : s.doneArg = none) : (s.connCleanup ref).Inv env := by
  cases h.placed ref with
  | gone _ _ hnot => exact absurd hcleanup hnot
  | request _ _ _ hnot => exact absurd hcleanup hnot
  | done _ _ _ hnot => exact absurd hcleanup hnot
  | cleanup harg hevent hrequest _ _ =>
      have halive := (h.owned ref _ harg).2
      have hne := Option.isSome_iff_ne_none.mp halive
      simp only [HttpClients.connCleanup, harg, release, eraseArg, hevent, hne, hdone,
        reduceCtorEq, or_self, if_false]
      have hfreed := h.freed hdone harg hrequest
      rw [hdone] at hfreed
      exact hfreed.removeIdle halive

/-- The timer that frees a connection can be had, and a request that is not taken is
left to its owner. -/
def Served (s : HttpClients) : HttpAction → Prop
  | .httpReq peer now params asyncCtx calls =>
      s.HandsOver peer now params asyncCtx calls → calls.makeRequest ≠ .freed
  | .scheduleCleanup eventNew eventAdd => eventNew = true ∧ eventAdd = true
  | _ => True

theorem Inv.step (h : s.Inv env) {a : HttpAction} (hserved : s.Served a)
    (hstep : s.step env a = some s') : s'.Inv env := by
  unfold HttpClients.step at hstep
  rw [if_neg (by simp [h.noFault])] at hstep
  cases a with
  | trans a =>
      obtain ⟨-, hstep⟩ := Option.ite_none_right_eq_some.mp hstep
      obtain ⟨trans, htrans, rfl⟩ := Option.map_eq_some_iff.mp hstep
      exact h.transStep htrans
  | httpReq peer now params asyncCtx calls =>
      rw [← Option.some.inj hstep]
      exact h.httpReq hserved
  | reqDone ref done =>
      obtain ⟨hguard, hstep⟩ := Option.ite_none_right_eq_some.mp hstep
      rw [Bool.and_eq_true, Option.isNone_iff_eq_none] at hguard
      cases h.placed ref with
      | gone _ hnone => exact nomatch hnone ▸ hguard.1
      | done _ _ hnone => exact nomatch hnone ▸ hguard.1
      | cleanup _ _ hnone => exact nomatch hnone ▸ hguard.1
      | request harg =>
          have hne := Option.isSome_iff_ne_none.mp (h.owned ref _ harg).2
          simp only [harg, hne, if_false] at hstep
          obtain ⟨trans, htrans, rfl⟩ := Option.map_eq_some_iff.mp hstep
          exact h.reqDone hguard.1 hguard.2 harg htrans
  | scheduleCleanup eventNew eventAdd =>
      obtain ⟨hidle, hstep⟩ := Option.ite_none_right_eq_some.mp hstep
      obtain ⟨ref, hdone, rfl⟩ := Option.map_eq_some_iff.mp hstep
      obtain ⟨rfl, rfl⟩ := hserved
      exact h.scheduled hdone hidle
  | connClosed ref =>
      obtain ⟨arg, harg, rfl⟩ := Option.map_eq_some_iff.mp hstep
      rw [if_neg (Option.isSome_iff_ne_none.mp (h.owned ref arg harg).2)]
      exact h
  | connCleanup ref =>
      obtain ⟨hguard, hstep⟩ := Option.ite_none_right_eq_some.mp hstep
      simp only [Bool.and_eq_true, decide_eq_true_eq, Option.isNone_iff_eq_none] at hguard
      rw [← Option.some.inj hstep]
      exact h.connCleanup hguard.1.1 hguard.1.2

/-- Any other step ends in a fault. -/
theorem Inv.served (h : s.Inv env) {a : HttpAction} (hstep : s.step env a = some s')
    (hfault : s'.fault = false) : s.Served a := by
  unfold HttpClients.step at hstep
  rw [if_neg (by simp [h.noFault])] at hstep
  cases a with
  | httpReq peer now params asyncCtx calls =>
      intro hover hfreed
      rw [← Option.some.inj hstep, httpReq_fault hover hfreed] at hfault
      cases hfault
  | scheduleCleanup eventNew eventAdd =>
      obtain ⟨-, hstep⟩ := Option.ite_none_right_eq_some.mp hstep
      obtain ⟨ref, hdone, rfl⟩ := Option.map_eq_some_iff.mp hstep
      by_contra hfails
      rw [h.scheduleCleanup_fault hdone hfails] at hfault
      cases hfault
  | _ => trivial

/-- **The objects behind the HTTP requests** are in order in every state of a run
exactly if each connection gets the timer that frees it and each request that libevent
does not take is left to `DoHTTPReq`. -/
theorem run_httpOk_iff (env : EvhttpEnv) (actions : List HttpAction) :
    Along (step env) (HttpOk env) (fun _ _ _ => True) init actions ↔
      Guarded (step env) Served init actions :=
  along_iff_guarded (fun _ h => Inv.httpOk h)
    (fun _ _ _ h hserved hstep => ⟨Inv.step h hserved hstep, trivial⟩)
    (fun _ _ _ h hstep _ hok => Inv.served h hstep hok.noFault) actions Inv.init

end HttpClients

end CommonComponent
