import CommonComponent.LabelledRun
import Mathlib.Logic.Function.Basic
import Mathlib.Tactic

/-!
# The clients of a client center

`ClientCenter` has a client for each peer it is to talk to.  A client object is known
by the number of objects made before it; `clients` has the live ones with their peers.

What the registry is for is said in terms of the calls: `owner` follows from what they
returned, and knows nothing of `client_map_`.  The cleanup of `CreateClient` erases the
entry of the peer, whoever made it.
-/

namespace CommonComponent

open LabelledRun

/-- Which of the calls that `CreateClient` makes on the new object succeed. -/
structure CreateClientEnv where
  made : Bool
  initialized : Bool
  activated : Bool

structure ClientCenter (Peer : Type) where
  clients : ℕ → Option Peer
  nextClient : ℕ
  clientMap : Peer → Option ℕ
  destroyed : List ℕ

/-- What a call has come to. -/
inductive ClientCall (Peer : Type)
  | created (peer : Peer) (ref : ℕ)
  | createFailed (peer : Peer)
  | removed (peer : Peer)
  | closed (ref : ℕ)

inductive ClientCenterAction (Peer : Type)
  | createClient (env : CreateClientEnv) (peer : Peer)
  | removeClient (peer : Peer)
  | close (ref : ℕ)

/-- A client center with the calls so far. -/
structure ClientCenterRun (Peer : Type) where
  center : ClientCenter Peer
  calls : List (ClientCall Peer)

variable {Peer : Type} [DecidableEq Peer]

namespace ClientCenter

def init : ClientCenter Peer where
  clients := fun _ => none
  nextClient := 0
  clientMap := fun _ => none
  destroyed := []

def getClient (cc : ClientCenter Peer) (peer : Peer) : Option ℕ := cc.clientMap peer

def safeDestroy (cc : ClientCenter Peer) (ref : ℕ) : Option (ClientCenter Peer) :=
  (cc.clients ref).map fun _ =>
    { cc with
      clients := Function.update cc.clients ref none
      destroyed := cc.destroyed ++ [ref] }

def makeClient (cc : ClientCenter Peer) (peer : Peer) : ClientCenter Peer :=
  { cc with
    clients := Function.update cc.clients cc.nextClient (some peer)
    nextClient := cc.nextClient + 1 }

def createClient (cc : ClientCenter Peer) (env : CreateClientEnv) (peer : Peer) :
    Option (ClientCenter Peer × Option ℕ) :=
  if !env.made then some (cc, none)
  else
    let ref := cc.nextClient
    let made := cc.makeClient peer
    if env.initialized && env.activated && (cc.clientMap peer).isNone then
      some ({ made with clientMap := Function.update cc.clientMap peer (some ref) },
        some ref)
    else
      let erased := { made with clientMap := Function.update cc.clientMap peer none }
      (erased.safeDestroy ref).map fun cc => (cc, none)

def removeClient (cc : ClientCenter Peer) (peer : Peer) : Option (ClientCenter Peer) :=
  match cc.clientMap peer with
  | none => some cc
  | some ref =>
      (cc.safeDestroy ref).map fun cc =>
        { cc with clientMap := Function.update cc.clientMap peer none }

/-- `Client::Close`, which goes by the peer. -/
def close (cc : ClientCenter Peer) (ref : ℕ) : Option (ClientCenter Peer) :=
  (cc.clients ref).bind cc.removeClient

end ClientCenter

namespace ClientCenterRun

def init : ClientCenterRun Peer := ⟨.init, []⟩

def step (s : ClientCenterRun Peer) :
    ClientCenterAction Peer → Option (ClientCenterRun Peer)
  | .createClient env peer =>
      (s.center.createClient env peer).map fun
        | (cc, some ref) => ⟨cc, s.calls ++ [.created peer ref]⟩
        | (cc, none) => ⟨cc, s.calls ++ [.createFailed peer]⟩
  | .removeClient peer =>
      (s.center.removeClient peer).map fun cc => ⟨cc, s.calls ++ [.removed peer]⟩
  | .close ref => (s.center.close ref).map fun cc => ⟨cc, s.calls ++ [.closed ref]⟩

def ownerAfter (peer : Peer) (owner : Option ℕ) : ClientCall Peer → Option ℕ
  | .created peer' ref => if peer' = peer then some ref else owner
  | .createFailed _ => owner
  | .removed peer' => if peer' = peer then none else owner
  | .closed ref => if owner = some ref then none else owner

/-- The client that the last successful `CreateClient` for the peer has made, unless it
was removed since. -/
def owner (calls : List (ClientCall Peer)) (peer : Peer) : Option ℕ :=
  calls.foldl (ownerAfter peer) none

/-- Each peer has the client it should have, and each object made is destroyed once,
when no peer has it any more. -/
structure RegistryOk (s : ClientCenterRun Peer) : Prop where
  registered : ∀ peer, s.center.getClient peer = owner s.calls peer
  kept : ∀ peer ref, owner s.calls peer = some ref → s.center.destroyed.count ref = 0
  destroyed : ∀ ref < s.center.nextClient, (∀ peer, owner s.calls peer ≠ some ref) →
    s.center.destroyed.count ref = 1

/-- A `CreateClient` that fails changes no peer's client. -/
def FailsClean (s : ClientCenterRun Peer) (a : ClientCenterAction Peer)
    (s' : ClientCenterRun Peer) : Prop :=
  ∀ env peer cc, a = .createClient env peer →
    s.center.createClient env peer = some (cc, none) →
    ∀ peer', s'.center.getClient peer' = s.center.getClient peer'

/-- A client is created for a peer that has none. -/
def CreatesFirst (s : ClientCenterRun Peer) : ClientCenterAction Peer → Prop
  | .createClient env peer => env.made = true → s.center.getClient peer = none
  | .removeClient _ => True
  | .close _ => True

structure Inv (s : ClientCenterRun Peer) : Prop where
  live_iff : ∀ ref peer, s.center.clients ref = some peer ↔
    s.center.clientMap peer = some ref
  registered : ∀ peer, s.center.clientMap peer = owner s.calls peer
  live : ∀ ref peer, s.center.clients ref = some peer → s.center.destroyed.count ref = 0
  gone : ∀ ref < s.center.nextClient, s.center.clients ref = none →
    s.center.destroyed.count ref = 1
  unused : ∀ ref, s.center.nextClient ≤ ref →
    s.center.clients ref = none ∧ s.center.destroyed.count ref = 0

variable {s s' : ClientCenterRun Peer}

theorem Inv.init : (init : ClientCenterRun Peer).Inv where
  live_iff := fun _ _ => ⟨nofun, nofun⟩
  registered := fun _ => rfl
  live := fun _ _ _ => rfl
  gone := fun _ h => absurd h (Nat.not_lt_zero _)
  unused := fun _ _ => ⟨rfl, rfl⟩

theorem owner_append (calls : List (ClientCall Peer)) (call : ClientCall Peer)
    (peer : Peer) :
    owner (calls ++ [call]) peer = ownerAfter peer (owner calls peer) call :=
  List.foldl_append

theorem Inv.registryOk (h : s.Inv) : s.RegistryOk where
  registered := h.registered
  kept := fun peer ref howner =>
    h.live ref peer ((h.live_iff ref peer).mpr ((h.registered peer).trans howner))
  destroyed := fun ref hlt hnone => by
    refine h.gone ref hlt (Option.eq_none_iff_forall_ne_some.mpr fun peer hlive => ?_)
    exact hnone peer ((h.registered peer).symm.trans ((h.live_iff ref peer).mp hlive))

/-- An object that is made and given back leaves everything but the count of objects. -/
theorem Inv.discard (h : s.Inv) (peer : Peer) {cc : ClientCenter Peer}
    (hmap : cc.clientMap = s.center.clientMap)
    (hclients : cc.clients = s.center.clients)
    (hnext : cc.nextClient = s.center.nextClient + 1)
    (hdestroyed : cc.destroyed = s.center.destroyed ++ [s.center.nextClient]) :
    Inv ⟨cc, s.calls ++ [.createFailed peer]⟩ := by
  refine ⟨fun ref peer' => ?_, fun peer' => ?_, fun ref peer' hlive => ?_,
    fun ref hlt hnone => ?_, fun ref hle => ?_⟩ <;> dsimp only at *
  · rw [hmap, hclients]
    exact h.live_iff ref peer'
  · rw [hmap, owner_append]
    exact h.registered peer'
  · rw [hclients] at hlive
    have hne : s.center.nextClient ≠ ref := by
      rintro rfl
      rw [(h.unused _ le_rfl).1] at hlive
      cases hlive
    rw [hdestroyed, List.count_append, h.live ref peer' hlive, List.count_singleton]
    simp [hne]
  · rw [hclients] at hnone
    rw [hdestroyed, List.count_append, List.count_singleton]
    by_cases heq : s.center.nextClient = ref
    · simp [heq, (h.unused ref heq.le).2]
    · have hcount := h.gone ref (by omega) hnone
      simp [heq, hcount]
  · have hold := h.unused ref (by omega)
    rw [hclients, hdestroyed, List.count_append, List.count_singleton, hold.2]
    have hne : s.center.nextClient ≠ ref := by omega
    exact ⟨hold.1, by simp [hne]⟩

theorem Inv.create (h : s.Inv) {peer : Peer} (hnone : s.center.clientMap peer = none) :
    Inv ⟨{ s.center.makeClient peer with
        clientMap := Function.update s.center.clientMap peer (some s.center.nextClient) },
      s.calls ++ [.created peer s.center.nextClient]⟩ := by
  have hfresh := h.unused s.center.nextClient le_rfl
  refine ⟨fun ref peer' => ?_, fun peer' => ?_, fun ref peer' hlive => ?_,
    fun ref hlt hgone => ?_, fun ref hle => ?_⟩ <;>
    dsimp only [ClientCenter.makeClient] at *
  · by_cases href : ref = s.center.nextClient
    · rw [href, Function.update_self]
      by_cases hpeer : peer' = peer
      · rw [hpeer, Function.update_self]
        exact ⟨fun _ => rfl, fun _ => rfl⟩
      · rw [Function.update_of_ne hpeer, ← h.live_iff, hfresh.1]
        exact ⟨fun heq => absurd (Option.some.inj heq).symm hpeer, nofun⟩
    · rw [Function.update_of_ne href]
      by_cases hpeer : peer' = peer
      · rw [hpeer, Function.update_self, h.live_iff, hnone]
        exact ⟨nofun, fun heq => absurd (Option.some.inj heq).symm href⟩
      · rw [Function.update_of_ne hpeer]
        exact h.live_iff ref peer'
  · rw [owner_append, ownerAfter]
    by_cases hpeer : peer' = peer
    · rw [hpeer, Function.update_self, if_pos rfl]
    · rw [Function.update_of_ne hpeer, if_neg (Ne.symm hpeer), h.registered]
  · by_cases href : ref = s.center.nextClient
    · rw [href]
      exact hfresh.2
    · rw [Function.update_of_ne href] at hlive
      exact h.live ref peer' hlive
  · by_cases href : ref = s.center.nextClient
    · rw [href, Function.update_self] at hgone
      cases hgone
    · rw [Function.update_of_ne href] at hgone
      exact h.gone ref (by omega) hgone
  · rw [Function.update_of_ne (by omega)]
    exact h.unused ref (by omega)

theorem Inv.remove (h : s.Inv) {peer : Peer} {ref : ℕ}
    (hmap : s.center.clientMap peer = some ref) {call : ClientCall Peer}
    (hcall : ∀ peer', ownerAfter peer' (owner s.calls peer') call =
      if peer' = peer then none else owner s.calls peer') :
    Inv ⟨{ s.center with
        clients := Function.update s.center.clients ref none
        destroyed := s.center.destroyed ++ [ref]
        clientMap := Function.update s.center.clientMap peer none }, s.calls ++ [call]⟩ := by
  have hlive : s.center.clients ref = some peer := (h.live_iff ref peer).mpr hmap
  have hcount : ∀ ref', (s.center.destroyed ++ [ref]).count ref' =
      s.center.destroyed.count ref' + if ref = ref' then 1 else 0 := fun ref' => by
    rw [List.count_append, List.count_singleton]
    simp
  refine ⟨fun ref' peer' => ?_, fun peer' => ?_, fun ref' peer' hlive' => ?_,
    fun ref' hlt hgone => ?_, fun ref' hle => ?_⟩ <;> dsimp only at *
  · by_cases hpeer : peer' = peer
    · rw [hpeer, Function.update_self]
      by_cases href : ref' = ref
      · rw [href, Function.update_self]
        exact ⟨nofun, nofun⟩
      · rw [Function.update_of_ne href, h.live_iff, hmap]
        exact ⟨fun heq => absurd (Option.some.inj heq).symm href, nofun⟩
    · rw [Function.update_of_ne hpeer]
      by_cases href : ref' = ref
      · rw [href, Function.update_self, ← h.live_iff, hlive]
        exact ⟨nofun, fun heq => absurd (Option.some.inj heq).symm hpeer⟩
      · rw [Function.update_of_ne href]
        exact h.live_iff ref' peer'
  · rw [owner_append, hcall]
    by_cases hpeer : peer' = peer
    · rw [hpeer, Function.update_self, if_pos rfl]
    · rw [Function.update_of_ne hpeer, if_neg hpeer, h.registered]
  · by_cases href : ref' = ref
    · rw [href, Function.update_self] at hlive'
      cases hlive'
    · rw [Function.update_of_ne href] at hlive'
      rw [hcount, h.live ref' peer' hlive', if_neg (Ne.symm href)]
  · rw [hcount]
    by_cases href : ref' = ref
    · rw [href, h.live ref peer hlive, if_pos rfl]
    · rw [Function.update_of_ne href] at hgone
      rw [h.gone ref' hlt hgone, if_neg (Ne.symm href)]
  · have hne : ref' ≠ ref := by
      rintro rfl
      rw [(h.unused _ hle).1] at hlive
      cases hlive
    rw [Function.update_of_ne hne, hcount, (h.unused ref' hle).2, if_neg (Ne.symm hne)]
    exact ⟨(h.unused ref' hle).1, rfl⟩

/-- `RemoveClient`, whichever call it is part of. -/
theorem Inv.removeClient (h : s.Inv) {peer : Peer} {cc : ClientCenter Peer}
    (hremove : s.center.removeClient peer = some cc) {call : ClientCall Peer}
    (hcall : ∀ peer', ownerAfter peer' (owner s.calls peer') call =
      if peer' = peer then none else owner s.calls peer') :
    Inv ⟨cc, s.calls ++ [call]⟩ := by
  unfold ClientCenter.removeClient at hremove
  cases hmap : s.center.clientMap peer with
  | none =>
      rw [hmap, Option.some.injEq] at hremove
      subst hremove
      refine ⟨h.live_iff, fun peer' => ?_, h.live, h.gone, h.unused⟩
      dsimp only
      rw [owner_append, hcall, h.registered]
      split_ifs with hpeer
      · rw [hpeer, ← h.registered, hmap]
      · rfl
  | some ref =>
      have hlive := (h.live_iff ref peer).mpr hmap
      rw [hmap] at hremove
      simp only [ClientCenter.safeDestroy, hlive, Option.map_some, Option.some.injEq] at hremove
      subst hremove
      exact h.remove hmap hcall

/-- What `CreateClient` comes to: nothing is made, the peer gets its first client, or
the new object is destroyed again and the entry of the peer erased. -/
theorem createClient_cases (cc : ClientCenter Peer) (env : CreateClientEnv) (peer : Peer) :
    (env.made = false ∧ cc.createClient env peer = some (cc, none)) ∨
      (env.made = true ∧ cc.clientMap peer = none ∧ cc.createClient env peer =
        some ({ cc.makeClient peer with
          clientMap := Function.update cc.clientMap peer (some cc.nextClient) },
          some cc.nextClient)) ∨
      (env.made = true ∧ cc.createClient env peer =
        some ({ cc.makeClient peer with
          clientMap := Function.update cc.clientMap peer none
          clients := Function.update (cc.makeClient peer).clients cc.nextClient none
          destroyed := cc.destroyed ++ [cc.nextClient] }, none)) := by
  unfold ClientCenter.createClient
  cases hmade : env.made with
  | false => exact .inl ⟨rfl, rfl⟩
  | true =>
      right
      by_cases hinserted : (env.initialized && env.activated &&
          (cc.clientMap peer).isNone) = true
      · have hnone : cc.clientMap peer = none := by
          rw [Bool.and_eq_true, Option.isNone_iff_eq_none] at hinserted
          exact hinserted.2
        exact .inl ⟨rfl, hnone, by simp [hinserted]⟩
      · refine .inr ⟨rfl, ?_⟩
        simp [hinserted, ClientCenter.safeDestroy, ClientCenter.makeClient]

/-- A `CreateClient` for a peer without a client keeps the registry in order. -/
theorem Inv.createClient (h : s.Inv) {env : CreateClientEnv} {peer : Peer}
    (hfirst : env.made = true → s.center.getClient peer = none)
    (hstep : s.step (.createClient env peer) = some s') :
    s'.Inv ∧ FailsClean s (.createClient env peer) s' := by
  rcases createClient_cases s.center env peer with
    ⟨-, hresult⟩ | ⟨-, hnone, hresult⟩ | ⟨hmade, hresult⟩
  · simp only [ClientCenterRun.step, hresult, Option.map_some, Option.some.injEq] at hstep
    subst hstep
    refine ⟨⟨h.live_iff, fun peer' => ?_, h.live, h.gone, h.unused⟩, fun _ _ _ _ _ _ => rfl⟩
    dsimp only
    rw [owner_append]
    exact h.registered peer'
  · simp only [ClientCenterRun.step, hresult, Option.map_some, Option.some.injEq] at hstep
    subst hstep
    refine ⟨h.create hnone, fun env' peer' cc heq hfail => ?_⟩
    cases heq
    rw [hresult] at hfail
    cases hfail
  · simp only [ClientCenterRun.step, hresult, Option.map_some, Option.some.injEq] at hstep
    subst hstep
    have hmap : Function.update s.center.clientMap peer none = s.center.clientMap :=
      Function.update_eq_self_iff.mpr (hfirst hmade).symm
    refine ⟨h.discard peer hmap ?_ rfl rfl, fun _ _ _ _ _ peer' => ?_⟩
    · dsimp only [ClientCenter.makeClient]
      rw [Function.update_idem]
      exact Function.update_eq_self_iff.mpr (h.unused _ le_rfl).1.symm
    · exact congrFun hmap peer'

theorem Inv.step (h : s.Inv) {a : ClientCenterAction Peer} (hfirst : s.CreatesFirst a)
    (hstep : s.step a = some s') : s'.Inv ∧ FailsClean s a s' := by
  cases a with
  | createClient env peer => exact h.createClient hfirst hstep
  | removeClient peer =>
      obtain ⟨cc, hremove, rfl⟩ := Option.map_eq_some_iff.mp hstep
      refine ⟨h.removeClient hremove fun peer' => ?_, nofun⟩
      simp [ownerAfter, eq_comm]
  | close ref =>
      obtain ⟨cc, hclose, rfl⟩ := Option.map_eq_some_iff.mp hstep
      obtain ⟨peer, hpeer, hremove⟩ := Option.bind_eq_some_iff.mp hclose
      refine ⟨h.removeClient hremove fun peer' => ?_, nofun⟩
      -- the peer of the object has no other client
      have howner : owner s.calls peer' = some ref ↔ peer' = peer := by
        rw [← h.registered, ← h.live_iff, hpeer, Option.some.injEq, eq_comm]
      simp only [ownerAfter, howner]

/-- **The client registry.**  In every state of a run each peer has the client it should
have, and no object is lost or destroyed twice, and every `CreateClient` that fails
leaves the registry as it was: exactly when clients are created only for peers that have
none. -/
theorem registryOk_iff_createsFirst (actions : List (ClientCenterAction Peer)) :
    Along step RegistryOk FailsClean init actions ↔ Guarded step CreatesFirst init actions := by
  have hkeep : ∀ (s : ClientCenterRun Peer) a s', s.Inv → s.CreatesFirst a →
      s.step a = some s' → s'.Inv ∧ FailsClean s a s' := fun _ _ _ h => h.step
  refine along_iff_guarded (fun _ h => Inv.registryOk h) hkeep
    (fun s a s' h hstep hclean _ => ?_) actions Inv.init
  cases a with
  | removeClient => trivial
  | close => trivial
  | createClient env peer =>
      intro hmade
      rcases createClient_cases s.center env peer with
        ⟨hnot, -⟩ | ⟨-, hnone, -⟩ | ⟨-, hresult⟩
      · rw [hnot] at hmade
        cases hmade
      · exact hnone
      · have hsame := hclean env peer _ rfl hresult peer
        simp only [ClientCenterRun.step, hresult, Option.map_some, Option.some.injEq] at hstep
        subst hstep
        rw [← hsame]
        exact Function.update_self peer none s.center.clientMap

/-- A second `CreateClient` for the peer: it fails, and the first client is lost. -/
theorem not_registryOk_second : ¬∀ actions : List (ClientCenterAction ℕ),
    Along step RegistryOk FailsClean init actions := by
  intro hall
  have hrun : (run step (init : ClientCenterRun ℕ)
      [.createClient ⟨true, true, true⟩ 5, .createClient ⟨true, true, true⟩ 5]).map
        (fun s => (s.center.getClient 5, owner s.calls 5)) = some (none, some 0) := by
    decide +kernel
  obtain ⟨s, hs, hstate⟩ := Option.map_eq_some_iff.mp hrun
  obtain ⟨hget, howner⟩ := Prod.mk.inj hstate
  have hregistered := ((hall _).last hs).registered 5
  rw [hget, howner] at hregistered
  cases hregistered

end ClientCenterRun

end CommonComponent
