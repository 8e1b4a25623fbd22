import CommonComponent.ProtoTcpClientConnection

/-!
# The output of the client

Everything the client hands to `evbuffer_add` is an encoded message: one that a
caller sends, one that has waited in the cache, or the report of a message that
could not be read.  The attempts are kept in order, and none is taken back.

`Extends` says this of a call for any property of the data, so the calls need to
be gone through only once.
-/

namespace CommonComponent
namespace ClientState

variable {P : Bytes → Prop} {ctx : ClientCenterCtx} {env : CallEnv}

/-- All data handed out, and all data that waits to be, has the property. -/
structure OutputOk (P : Bytes → Prop) (s : ClientState) : Prop where
  adds : ∀ a ∈ s.adds, P a.data
  cache : ∀ transId cacheMsg, s.client.cacheMsgMap transId = some cacheMsg → P cacheMsg.msgBody

/-- A call that takes `s` to `t` keeps the property and adds to the attempts. -/
def Extends (P : Bytes → Prop) (s t : ClientState) : Prop :=
  OutputOk P s → OutputOk P t ∧ s.adds <+: t.adds

theorem Extends.trans {s t u : ClientState} (h : Extends P s t) (h' : Extends P t u) :
    Extends P s u := by
  intro hs
  obtain ⟨ht, hst⟩ := h hs
  obtain ⟨hu, htu⟩ := h' ht
  exact ⟨hu, hst.trans htu⟩

/-- A call that takes messages out of the cache at most. -/
theorem Extends.of_cache {s t : ClientState} (hadds : t.adds = s.adds)
    (hcache : ∀ transId cacheMsg, t.client.cacheMsgMap transId = some cacheMsg →
      s.client.cacheMsgMap transId = some cacheMsg) : Extends P s t := by
  intro hs
  refine ⟨⟨hadds ▸ hs.adds, fun transId cacheMsg hcached => ?_⟩, hadds ▸ List.prefix_rfl⟩
  exact hs.cache transId cacheMsg (hcache transId cacheMsg hcached)

theorem Extends.of_same {s t : ClientState} (hadds : t.adds = s.adds)
    (hcache : t.client.cacheMsgMap = s.client.cacheMsgMap) : Extends P s t :=
  .of_cache hadds fun _ _ h => hcache ▸ h

theorem Extends.refl (s : ClientState) : Extends P s s := .of_same rfl rfl

theorem extends_dropCacheMsg (s : ClientState) (transId : TransID) :
    Extends P s { s with
      client := { s.client with
        cacheMsgMap := Function.update s.client.cacheMsgMap transId none } } := by
  refine .of_cache rfl fun transId' cacheMsg h => ?_
  by_cases heq : transId' = transId
  · subst heq
    simp at h
  · simpa only [Function.update_of_ne heq] using h

/-! ## Sending -/

theorem extends_evbufferAdd (s : ClientState) {data : Bytes} (hdata : P data) :
    Extends P s (evbufferAdd env s data).1 := by
  intro hs
  refine ⟨⟨fun a ha => ?_, hs.cache⟩, List.prefix_append _ _⟩
  obtain ha | ha := List.mem_append.mp ha
  · exact hs.adds a ha
  · rw [List.mem_singleton.mp ha]
    exact hdata

theorem extends_innerSend (s : ClientState) {data : Bytes} (hdata : P data)
    (totalRetry : ℕ) : Extends P s (innerSend env s data totalRetry).1 := by
  induction totalRetry generalizing s with
  | zero => exact extends_evbufferAdd s hdata
  | succ totalRetry ih =>
      unfold innerSend
      dsimp only
      split
      · exact extends_evbufferAdd s hdata
      · exact (extends_evbufferAdd s hdata).trans (ih _)

theorem extends_addCacheMsg {s t : ClientState} {transId : TransID} {cacheMsg : CacheMsg}
    (hdata : P cacheMsg.msgBody) (hadd : s.addCacheMsg transId cacheMsg = some t) :
    Extends P s t := by
  intro hs
  unfold addCacheMsg at hadd
  split at hadd
  · cases hadd
  · rw [Option.some.injEq] at hadd
    subst hadd
    refine ⟨⟨hs.adds, fun transId' cacheMsg' hcached => ?_⟩, List.prefix_rfl⟩
    by_cases heq : transId' = transId
    · subst heq
      simp only [Function.update_self, Option.some.injEq] at hcached
      exact hcached ▸ hdata
    · simp only [Function.update_of_ne heq] at hcached
      exact hs.cache transId' cacheMsg' hcached

theorem extends_send (s : ClientState) (msgHead : MsgHead) (msgBody : Bytes)
    (asyncCtx : Option AsyncCtx) (hdata : ∀ head, P (ctx.msgCodec.encodeMsg head msgBody)) :
    Extends P s (s.send ctx env msgHead msgBody asyncCtx).2 := by
  have htable : ∀ tc, Extends P s { s with tc := tc } := fun tc => .of_same rfl rfl
  unfold send
  dsimp only
  split
  · exact htable _
  · split
    · exact (htable _).trans (extends_innerSend _ (hdata _) _)
    · split
      next t hadd => exact (htable _).trans (extends_addCacheMsg (hdata _) hadd)
      next => exact .of_same rfl rfl

theorem extends_sendCacheMsgs (s : ClientState) (transIds : List TransID) :
    Extends P s (sendCacheMsgs env s transIds).1 := by
  induction transIds generalizing s with
  | nil => exact .refl s
  | cons transId later ih =>
      unfold sendCacheMsgs
      cases hcached : s.client.cacheMsgMap transId with
      | none => exact ih s
      | some cacheMsg =>
          intro hs
          have hsent : Extends P s
              (innerSend env s cacheMsg.msgBody cacheMsg.totalRetries.toNat).1 :=
            extends_innerSend s (hs.cache transId cacheMsg hcached) _
          dsimp only
          split
          · exact (hsent.trans ((extends_dropCacheMsg _ transId).trans (ih _))) hs
          · exact (hsent.trans (ih _)) hs

theorem extends_sendCacheMsg (s : ClientState) : Extends P s (s.sendCacheMsg env) :=
  (extends_sendCacheMsgs s _).trans (.of_same rfl rfl)

/-! ## The connection -/

theorem extends_notifyPeer (s : ClientState) (event : TransCenter.PeerEvent) :
    Extends P s (s.notifyPeer env event) := .of_same rfl rfl

theorem extends_startConnectTimer (s : ClientState) :
    Extends P s (s.startConnectTimer ctx env) := by
  unfold startConnectTimer
  split
  · exact .refl s
  · split
    · exact .refl s
    · exact .of_same rfl rfl

theorem extends_setConnected (s : ClientState) (flag : Bool) (bufEvent : Option ℕ) :
    Extends P s (s.setConnected ctx env flag bufEvent) := by
  unfold setConnected
  dsimp only
  split
  · exact .of_same rfl rfl
  · split
    · split
      · exact .refl s
      · split <;> exact .of_same rfl rfl
    · split
      · refine Extends.trans ?_ (extends_notifyPeer _ _)
        refine Extends.trans ?_ (extends_sendCacheMsg _)
        exact .of_same rfl rfl
      · refine Extends.trans ?_ (extends_startConnectTimer _)
        refine Extends.trans ?_ (extends_notifyPeer _ _)
        exact .of_same rfl rfl

theorem extends_eventCallback (s : ClientState) (bufEvent : ℕ) (events : BevEvents)
    (inputLen : ℕ) : Extends P s (s.eventCallback ctx env bufEvent events inputLen) := by
  unfold eventCallback
  split
  · exact extends_setConnected s true _
  · split
    · refine Extends.trans ?_ (extends_setConnected _ false _)
      exact .of_same rfl rfl
    · exact .refl s

theorem extends_connect (s : ClientState) (bufEvent : Option ℕ) :
    Extends P s (s.connect bufEvent) := by
  cases bufEvent with
  | none => exact .refl s
  | some bufEvent => exact .of_same rfl rfl

/-! ## Reading -/

theorem Reads.extends {pass : ℕ} {s t : ClientState} (h : Reads ctx env pass s t)
    (hdata : ∀ head, P (ctx.msgCodec.encodeMsg head [])) : Extends P s t := by
  have hhandled : ∀ {pass : ℕ} {s s' : ClientState} {msgHead : MsgHead} {msgBody : Bytes}
      (rest : Bytes), s.handleMsg env pass msgHead msgBody = some s' →
        Extends P s (s'.setRecvedData rest) := by
    intro pass s s' msgHead msgBody rest hhandle
    obtain ⟨tc, notes, rfl⟩ := handleMsg_shape hhandle
    exact .of_same rfl rfl
  induction h with
  | waiting => exact .refl _
  | refused =>
      refine Extends.trans ?_ (extends_send _ _ _ _ hdata)
      exact .of_same rfl rfl
  | mismatch => exact extends_send _ _ _ _ hdata
  | unknown => exact .refl _
  | last _ _ hhandle => exact hhandled [] hhandle
  | next _ _ _ hhandle _ ih => exact (hhandled _ hhandle).trans ih

theorem extends_readCallback {s t : ClientState} {chunk : Bytes}
    (hdata : ∀ head, P (ctx.msgCodec.encodeMsg head []))
    (hcall : s.readCallback ctx env chunk = some t) : Extends P s t := by
  obtain ⟨t', hcall', ⟨-, rfl⟩ | ⟨-, hreads⟩⟩ := readCallback_reads ctx env s chunk
  · rw [hcall, Option.some.injEq] at hcall'
    exact hcall' ▸ .refl _
  · rw [hcall, Option.some.injEq] at hcall'
    subst hcall'
    refine Extends.trans ?_ (hreads.extends hdata)
    exact .of_same rfl rfl

end ClientState

namespace ClientRun

open ClientState

variable {P : Bytes → Prop} {ctx : ClientCenterCtx}

/-- The bodies that callers send in a step. -/
def SendsOnly (P : Bytes → Prop) (ctx : ClientCenterCtx) : ClientAction → Prop
  | .send _ msgBody _ _ => ∀ head, P (ctx.msgCodec.encodeMsg head msgBody)
  | _ => True

/-- **The output.**  A step adds to the attempts and keeps what is true of all data
handed out and of all encoded messages. -/
theorem step_extends {s s' : ClientRun} {a : ClientAction}
    (hreport : ∀ head, P (ctx.msgCodec.encodeMsg head [])) (hsends : SendsOnly P ctx a)
    (hstep : s.step ctx a = some s') : Extends P s.state s'.state := by
  unfold step at hstep
  split at hstep
  · cases hstep
  · cases a with
    | onTimer bufEvent =>
        dsimp only at hstep
        split at hstep
        · cases hstep
          exact extends_connect _ _
        · cases hstep
    | event bufEvent events inputLen env =>
        dsimp only at hstep
        split at hstep
        · cases hstep
          exact extends_eventCallback _ _ _ _
        · cases hstep
    | read bufEvent chunk env =>
        dsimp only at hstep
        split at hstep
        · obtain ⟨t, hcall, rfl⟩ := Option.map_eq_some_iff.mp hstep
          exact extends_readCallback hreport hcall
        · cases hstep
    | send msgHead msgBody asyncCtx env =>
        cases hstep
        exact extends_send _ _ _ _ hsends
    | addNfySink sink =>
        cases hstep
        dsimp only [addNfySink]
        split <;> exact .of_same rfl rfl
    | removeNfySink sink =>
        cases hstep
        exact .of_same rfl rfl
    | table tc =>
        cases hstep
        exact .of_same rfl rfl

end ClientRun
end CommonComponent
